import Synopsis.Proofs.Grammar

/-!
# The order of items

Two items that stand next to each other can change places, if no name is selected by both. Then
neither overwrites what the other one records, and what follows them is read the same way as
before: an argument list has one reading only, because the leader of an item that fits tells its
form and whether a value belongs to it (`Item.Fits.eq_of_tokens`).
-/

namespace Synopsis

/-! ## Recording in either order -/

/-- A selection binds nothing but the name of its option. -/
theorem Selection.last?_binding? {s : Selection} {key : String} (h : s.option.name ≠ key) :
    NameMap.last? key s.binding?.toList = none := by
  apply NameMap.last?_eq_none
  intro e he
  obtain ⟨value, -, rfl⟩ := Option.map_eq_some_iff.1 (Option.mem_toList.1 he)
  exact h

namespace Matches

/-- Two matches with the same answers for every name are equal. -/
theorem ext_answers {m n : Matches} (hgiven : ∀ key, m.includes key = n.includes key)
    (hvalues : ∀ key, m.argument? key = n.argument? key) : m = n := by
  obtain ⟨given, arguments⟩ := m
  obtain ⟨given', arguments'⟩ := n
  have hg : given = given' := by
    apply NameMap.ext_get?
    intro key
    have hkey : (given.get? key).isSome = (given'.get? key).isSome := hgiven key
    cases h : given.get? key <;> cases h' : given'.get? key <;> simp_all
  have ha : arguments = arguments' := NameMap.ext_get? hvalues
  rw [hg, ha]

/-- Selections of two names can be recorded in either order. -/
theorem record_comm (m : Matches) {s t : Selection} (h : s.option.name ≠ t.option.name) :
    (m.record s).record t = (m.record t).record s := by
  apply ext_answers
  · intro key
    simp only [includes_record]
    exact Bool.or_left_comm ..
  · intro key
    simp only [argument?_record]
    by_cases hs : s.option.name = key
    · have ht : t.option.name ≠ key := fun ht => h (hs.trans ht.symm)
      rw [Selection.last?_binding? ht, Option.none_or, Option.none_or]
    · rw [Selection.last?_binding? hs, Option.none_or, Option.none_or]

theorem record_recordAll_comm (m : Matches) {s : Selection} {ts : List Selection}
    (h : ∀ t ∈ ts, s.option.name ≠ t.option.name) :
    (m.record s).recordAll ts = (m.recordAll ts).record s := by
  induction ts generalizing m with
  | nil => rfl
  | cons t ts ih =>
    obtain ⟨ht, hts⟩ := List.forall_mem_cons.1 h
    show ((m.record s).record t).recordAll ts = ((m.record t).recordAll ts).record s
    rw [record_comm m ht, ih (m.record t) hts]

/-- Runs of selections without a common name can be recorded in either order. -/
theorem recordAll_comm (m : Matches) {ss ts : List Selection}
    (h : ∀ s ∈ ss, ∀ t ∈ ts, s.option.name ≠ t.option.name) :
    (m.recordAll ss).recordAll ts = (m.recordAll ts).recordAll ss := by
  induction ss generalizing m with
  | nil => rfl
  | cons s ss ih =>
    obtain ⟨hs, hss⟩ := List.forall_mem_cons.1 h
    show ((m.record s).recordAll ss).recordAll ts = ((m.recordAll ts).record s).recordAll ss
    rw [ih (m.record s) hss, record_recordAll_comm m hs]

theorem recordAll_append (m : Matches) (ss ts : List Selection) :
    m.recordAll (ss ++ ts) = (m.recordAll ss).recordAll ts :=
  List.foldl_append

end Matches

/-! ## One reading only -/

/-- A flag is used with a value exactly if its option takes one. -/
theorem Usage.isSome_raw_of_select {usage : Usage} {flag : String} {raw raw' : Option String}
    (h : (usage.select? ⟨flag, raw⟩).isSome) (h' : (usage.select? ⟨flag, raw'⟩).isSome) :
    raw.isSome = raw'.isSome := by
  have htakes : ∀ {raw}, (usage.select? ⟨flag, raw⟩).isSome →
      ∃ o, usage.option? flag = some o ∧ raw.isSome = o.kind?.isSome := by
    intro raw hselects
    obtain ⟨s, hs⟩ := Option.isSome_iff_exists.1 hselects
    cases raw with
    | none =>
      obtain ⟨o, hopt, hkind, -⟩ := select?_switch_iff.1 hs
      exact ⟨o, hopt, by rw [hkind]; rfl⟩
    | some raw =>
      obtain ⟨o, kind, value, hopt, hkind, -⟩ := select?_valued_iff.1 hs
      exact ⟨o, hopt, by rw [hkind]; rfl⟩
  obtain ⟨o, hopt, hraw⟩ := htakes h
  obtain ⟨p, hopt', hraw'⟩ := htakes h'
  rw [hopt, Option.some.injEq] at hopt'
  rw [hraw, hraw', hopt']

namespace Item

variable {usage : Usage}

theorem getLast_mem_letterUses (raw : Option String) {letters : List Char} (hne : letters ≠ []) :
    (⟨Flags.shortToken (letters.getLast hne), raw⟩ : FlagUse) ∈ letterUses raw letters := by
  induction letters with
  | nil => exact absurd rfl hne
  | cons c letters ih =>
    cases letters with
    | nil => exact List.mem_singleton.2 rfl
    | cons d rest =>
      rw [List.getLast_cons (List.cons_ne_nil d rest)]
      exact List.mem_cons_of_mem _ (ih (List.cons_ne_nil d rest))

/-- Items that fit and have the same leader have the same form, up to the value that follows. -/
theorem Fits.same_form {x y : Item} (hi : usage.Indexed) (hx : x.Fits usage) (hy : y.Fits usage)
    (hleader : x.leader = y.leader) :
    (∃ flag raw raw', x = .single flag raw ∧ y = .single flag raw') ∨
    (∃ letters raw raw', letters ≠ [] ∧ x = .group letters raw ∧ y = .group letters raw') ∨
    ∃ digits, x = .number digits ∧ y = .number digits := by
  cases hl : Chunk.groupLetters? x.leader with
  | some letters =>
    have hlen := (Chunk.groupLetters?_eq_some_iff.1 hl).2.1
    exact .inr (.inl ⟨letters, x.raw?, y.raw?, List.ne_nil_of_length_pos (by omega),
      hx.eq_group hi hl, hy.eq_group hi (hleader ▸ hl)⟩)
  | none =>
    by_cases hn : Chunk.numericAllowed usage = true
    · cases hd : Chunk.numberDigits? x.leader with
      | some digits =>
        exact .inr (.inr ⟨digits, hx.eq_number hn hd, hy.eq_number hn (hleader ▸ hd)⟩)
      | none =>
        refine .inl ⟨x.leader, x.raw?, y.raw?, hx.eq_single hl fun _ => hd, ?_⟩
        rw [hleader] at hl hd ⊢
        exact hy.eq_single hl fun _ => hd
    · refine .inl ⟨x.leader, x.raw?, y.raw?, hx.eq_single hl fun h => absurd h hn, ?_⟩
      rw [hleader] at hl ⊢
      exact hy.eq_single hl fun h => absurd h hn

/-- Texts that start with a value, or both without one, start with the same value. -/
theorem raw_eq_of_append {raw raw' : Option String} {s t : List String}
    (hsome : raw.isSome = raw'.isSome) (h : raw.toList ++ s = raw'.toList ++ t) :
    raw = raw' ∧ s = t := by
  cases raw <;> cases raw' <;> simp_all

/-- **An item that fits is known from the text it starts.** -/
theorem Fits.eq_of_tokens {x y : Item} (hi : usage.Indexed) (hx : x.Fits usage)
    (hy : y.Fits usage) {s t : List String} (h : x.tokens ++ s = y.tokens ++ t) :
    x = y ∧ s = t := by
  obtain ⟨hleader, htail⟩ := List.cons.inj h
  rcases hx.same_form hi hy hleader with ⟨flag, raw, raw', rfl, rfl⟩ |
    ⟨letters, raw, raw', hne, rfl, rfl⟩ | ⟨digits, rfl, rfl⟩
  · have hsome := Usage.isSome_raw_of_select (hx.selects _ (List.mem_singleton.2 rfl))
      (hy.selects _ (List.mem_singleton.2 rfl))
    obtain ⟨rfl, hst⟩ := raw_eq_of_append hsome htail
    exact ⟨rfl, hst⟩
  · -- The last letter of a group decides whether a value follows.
    have hsome := Usage.isSome_raw_of_select (hx.selects _ (getLast_mem_letterUses raw hne))
      (hy.selects _ (getLast_mem_letterUses raw' hne))
    obtain ⟨rfl, hst⟩ := raw_eq_of_append hsome htail
    exact ⟨rfl, hst⟩
  · exact ⟨rfl, htail⟩

/-- Items that fit, at the start of an argument list, are the first items of every reading. -/
theorem exists_of_flatMap_tokens (hi : usage.Indexed) {items more : List Item}
    (hitems : ∀ item ∈ items, item.Fits usage) (hmore : ∀ item ∈ more, item.Fits usage)
    {texts rest : List String} (hrest : ∀ v ∈ rest, IsValue v)
    (h : items.flatMap tokens ++ texts = more.flatMap tokens ++ rest) :
    ∃ after, more = items ++ after ∧ texts = after.flatMap tokens ++ rest := by
  induction items generalizing more with
  | nil => exact ⟨more, rfl, h⟩
  | cons x items ih =>
    obtain ⟨hx, hitems⟩ := List.forall_mem_cons.1 hitems
    cases more with
    | nil =>
      -- The leader of an item would be one of the values at the end.
      have hmem : x.leader ∈ rest := by
        rw [List.flatMap_nil, List.nil_append] at h
        rw [← h, List.flatMap_cons, tokens]
        simp
      exact absurd (hrest _ hmem) (hx.not_isValue_leader hi)
    | cons y more =>
      obtain ⟨hy, hafter⟩ := List.forall_mem_cons.1 hmore
      rw [List.flatMap_cons, List.flatMap_cons, List.append_assoc, List.append_assoc] at h
      obtain ⟨rfl, hst⟩ := hx.eq_of_tokens hi hy h
      obtain ⟨after, rfl, htexts⟩ := ih hitems hafter hst
      exact ⟨after, rfl, htexts⟩

end Item

/-! ## Items that change places -/

namespace Usage

/-- The names of the options that an item selects. -/
def selectedNames (usage : Usage) (item : Item) : List String :=
  (usage.selections item.uses).map (·.option.name)

variable {usage : Usage}

theorem selections_append (usage : Usage) (uses more : List FlagUse) :
    usage.selections (uses ++ more) = usage.selections uses ++ usage.selections more :=
  List.filterMap_append

/-- Neighbours that select different names say the same in either order. -/
theorem meaning_swap {x y : Item}
    (hnames : ∀ name ∈ usage.selectedNames x, name ∉ usage.selectedNames y)
    (before after : List Item) (rest : List String) :
    usage.meaning (before ++ [x, y] ++ after) rest =
      usage.meaning (before ++ [y, x] ++ after) rest := by
  have hdisjoint : ∀ s ∈ usage.selections x.uses, ∀ t ∈ usage.selections y.uses,
      s.option.name ≠ t.option.name := by
    intro s hs t ht heq
    exact hnames s.option.name (List.mem_map_of_mem hs) (heq ▸ List.mem_map_of_mem ht)
  simp only [meaning, List.flatMap_append, List.flatMap_cons, List.flatMap_nil, List.append_nil,
    selections_append, Matches.recordAll_append]
  rw [Matches.recordAll_comm _ hdisjoint]

theorem perm_swap (before after : List Item) (x y : Item) :
    (before ++ [y, x] ++ after).Perm (before ++ [x, y] ++ after) :=
  ((List.Perm.swap x y []).append_left before).append_right after

/-- A reading stays a reading when two neighbours change places. -/
theorem reading_swap {x y : Item} {before after : List Item} {rest : List String}
    (h : Reading usage ((before ++ [x, y] ++ after).flatMap Item.tokens ++ rest)
      (before ++ [x, y] ++ after) rest) :
    Reading usage ((before ++ [y, x] ++ after).flatMap Item.tokens ++ rest)
      (before ++ [y, x] ++ after) rest := by
  refine ⟨rfl, ?_, h.values, h.takes⟩
  intro item hitem
  exact h.fits item ((perm_swap before after x y).mem_iff.1 hitem)

/-- A complete argument list that starts with items that fit is read as these items and more. -/
theorem exists_reading_of_items (hi : usage.Indexed) (hc : Coherent usage.arguments)
    {items : List Item} (hitems : ∀ item ∈ items, item.Fits usage) {tail : List String}
    {m : Matches} (hm : usage.fit (items.flatMap Item.tokens ++ tail) = .ok (.complete m)) :
    ∃ after rest, tail = after.flatMap Item.tokens ++ rest ∧
      Reading usage ((items ++ after).flatMap Item.tokens ++ rest) (items ++ after) rest ∧
      m = usage.meaning (items ++ after) rest := by
  obtain ⟨-, more, rest, hreading, rfl⟩ := (fit_eq_complete_iff hi hc).1 hm
  obtain ⟨after, rfl, htail⟩ := Item.exists_of_flatMap_tokens hi hitems hreading.fits
    hreading.values hreading.tokens
  exact ⟨after, rest, htail, hreading.tokens ▸ hreading, rfl⟩

/-- **Items that select different names commute.** If an argument list starts with items that fit,
is complete, and no name is selected by both of two neighbours among these items, then it is
complete as well with these two in the other order, and says the same. -/
theorem items_commute {given : Option String} {text : String} (h : read given text = .ok usage)
    {before : List Item} {x y : Item} (hbefore : ∀ item ∈ before, item.Fits usage)
    (hx : x.Fits usage) (hy : y.Fits usage)
    (hnames : ∀ name ∈ usage.selectedNames x, name ∉ usage.selectedNames y)
    {tail : List String} {m : Matches}
    (hm : usage.fit (before.flatMap Item.tokens ++ x.tokens ++ y.tokens ++ tail) =
      .ok (.complete m)) :
    usage.fit (before.flatMap Item.tokens ++ y.tokens ++ x.tokens ++ tail) =
      .ok (.complete m) := by
  have hi := indexed_of_read h
  have hc := coherent_of_read h
  have hfits : ∀ item ∈ before ++ [x, y], item.Fits usage := by
    intro item hitem
    simp only [List.mem_append, List.mem_cons, List.not_mem_nil, or_false] at hitem
    rcases hitem with hitem | rfl | rfl
    · exact hbefore item hitem
    · exact hx
    · exact hy
  have htokens : ∀ x y : Item, before.flatMap Item.tokens ++ x.tokens ++ y.tokens ++ tail =
      (before ++ [x, y]).flatMap Item.tokens ++ tail := by
    intro x y
    simp
  rw [htokens] at hm ⊢
  have hhelp := ((fit_eq_complete_iff hi hc).1 hm).1
  obtain ⟨after, rest, rfl, hreading, rfl⟩ := exists_reading_of_items hi hc hfits hm
  rw [← List.append_assoc, ← List.flatMap_append] at hhelp ⊢
  -- The tokens are the same, so help is asked for in neither order.
  have hperm : ((before ++ [y, x] ++ after).flatMap Item.tokens ++ rest).Perm
      ((before ++ [x, y] ++ after).flatMap Item.tokens ++ rest) :=
    ((perm_swap before after x y).flatMap_right Item.tokens).append_right rest
  rw [← hperm.mem_iff, ← hperm.mem_iff] at hhelp
  exact (fit_eq_complete_iff hi hc).2
    ⟨hhelp, _, rest, reading_swap hreading, meaning_swap hnames before after rest⟩

/-- A group with a value and a number change places, between a switch and what follows. -/
theorem items_commute_group_number :
    ∃ usage m, read none "Usage: p [-q] [-v] [-o FILE] [-n NUM] file..." = .ok usage ∧
      usage.fit ["-q", "-vo", "out", "-15", "-q", "a", "b"] = .ok (.complete m) ∧
      usage.fit ["-q", "-15", "-vo", "out", "-q", "a", "b"] = .ok (.complete m) := by
  let usage : Usage :=
    { program := "p"
      message := "Usage: p [-q] [-v] [-o FILE] [-n NUM] file..."
      arguments := [⟨"file", .repeated⟩]
      options := [⟨"q", .short 'q', none⟩, ⟨"v", .short 'v', none⟩, ⟨"o", .short 'o', some "FILE"⟩,
        ⟨"n", .short 'n', some "NUM"⟩]
      flagTable := NameMap.empty.insertAll [("-q", 0), ("-v", 1), ("-o", 2), ("-n", 3)]
      defaults := .empty }
  let quiet : Item := .single "-q" none
  let group : Item := .group ['v', 'o'] (some "out")
  let number : Item := .number ['1', '5']
  have hread : read none "Usage: p [-q] [-v] [-o FILE] [-n NUM] file..." = .ok usage := by
    decide +kernel
  have hfit : usage.fit ["-q", "-vo", "out", "-15", "-q", "a", "b"] =
      .ok (.complete (usage.meaning [quiet, group, number, quiet] ["a", "b"])) := by decide +kernel
  have hquiet : ∀ item ∈ [quiet], item.Fits usage := by decide +kernel
  have hnames : ∀ name ∈ usage.selectedNames group, name ∉ usage.selectedNames number := by
    decide +kernel
  exact ⟨usage, _, hread, hfit,
    items_commute hread hquiet (by decide +kernel) (by decide +kernel) hnames hfit⟩

end Usage

end Synopsis
