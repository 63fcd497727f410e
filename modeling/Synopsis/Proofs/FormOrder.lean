import Synopsis.Proofs.CalendarText

/-!
# The order of the forms does not matter

The value of an option is read as a date in one of three forms and as a time in one of three, and
the first form that fits wins. It would be the same with any other order (`Kind.coerceIn`), since
the forms that fit a text agree on it.

Of the forms of a date only one fits (`Date.Pattern.eq_of_read?`). All of them read the year alike,
and what stands behind it is a dash, a slash, or the digits of the month, after blanks at most. Of
the forms of a time two may fit, as a fraction may be left out; but each gives what the reader of
texts gives, which has no forms to choose from (`Time.ofText?_of_read?`).
-/

namespace Synopsis

/-! ## Searching in any order -/

section

variable {α β : Type} {f : α → Option β} {xs ys : List α}

/-- If all hits agree, a search finds what any of them gives. -/
theorem findSome?_eq_some_iff_of_agree
    (hagree : ∀ x ∈ xs, ∀ y ∈ xs, ∀ a b, f x = some a → f y = some b → a = b) {a : β} :
    xs.findSome? f = some a ↔ ∃ x ∈ xs, f x = some a := by
  constructor
  · exact List.exists_of_findSome?_eq_some
  · rintro ⟨x, hx, hfx⟩
    cases hfirst : xs.findSome? f with
    | none =>
      rw [List.findSome?_eq_none_iff.1 hfirst x hx] at hfx
      cases hfx
    | some b =>
      obtain ⟨y, hy, hfy⟩ := List.exists_of_findSome?_eq_some hfirst
      rw [hagree y hy x hx b a hfy hfx]

theorem findSome?_perm (h : xs.Perm ys)
    (hagree : ∀ x ∈ ys, ∀ y ∈ ys, ∀ a b, f x = some a → f y = some b → a = b) :
    xs.findSome? f = ys.findSome? f := by
  have hagree' : ∀ x ∈ xs, ∀ y ∈ xs, ∀ a b, f x = some a → f y = some b → a = b :=
    fun x hx y hy => hagree x (h.mem_iff.1 hx) y (h.mem_iff.1 hy)
  apply Option.ext
  intro a
  rw [findSome?_eq_some_iff_of_agree hagree, findSome?_eq_some_iff_of_agree hagree']
  simp only [h.mem_iff]

end

/-! ## The forms of a date -/

/-- No field starts with what is neither a blank nor a digit. -/
theorem Calendar.field?_cons_eq_none {width : Nat} {c : Char} {s : List Char}
    (hblank : Text.isBlank c = false) (hdigit : c.isDigit = false) :
    field? width (c :: s) = none := by
  rw [Option.eq_none_iff_forall_ne_some]
  rintro ⟨n, rest⟩ h
  obtain ⟨d, t, htrim, hd⟩ := exists_isDigit_of_field? h
  rw [Text.trimStart_cons_of_not_isBlank hblank, List.cons.injEq] at htrim
  rw [← htrim.1, hdigit] at hd
  cases hd

namespace Date.Pattern

variable {p q : Pattern} {s rest : List Char} {d e : Date}

/-- The form that a date has if the text stands behind its year. -/
def behindYear : List Char → Pattern
  | '-' :: _ => dashed
  | '/' :: _ => ⟨['/'], false⟩
  | _ => ⟨[], false⟩

theorem eq_behindYear (hp : p ∈ ofOption) {year : Int}
    (hyear : Calendar.year? s = some (year, rest))
    (h : p.read? s = some d) : p = behindYear rest := by
  obtain ⟨_, month, _, s₁, s₂, _, _, _, hyear', hskip, hmonth, -⟩ := read?_eq_some_iff.1 h
  obtain ⟨-, rfl⟩ := Prod.mk.inj (Option.some.inj (hyear.symm.trans hyear'))
  simp only [ofOption, List.mem_cons, List.not_mem_nil, or_false] at hp
  rcases hp with rfl | rfl | rfl
  · obtain rfl : rest = '-' :: s₂ := hskip
    rfl
  · obtain rfl : rest = '/' :: s₂ := hskip
    rfl
  · obtain rfl : rest = s₂ := hskip
    -- The month comes next, and no month starts with a dash or a slash.
    unfold behindYear
    split
    · rw [Calendar.field?_cons_eq_none (by decide) (by decide)] at hmonth
      cases hmonth
    · rw [Calendar.field?_cons_eq_none (by decide) (by decide)] at hmonth
      cases hmonth
    · rfl

/-- No text is a date in two forms. -/
theorem eq_of_read? (hp : p ∈ ofOption) (hq : q ∈ ofOption) (h : p.read? s = some d)
    (h' : q.read? s = some e) : p = q := by
  obtain ⟨year, _, _, s₁, _, _, _, _, hyear, -⟩ := read?_eq_some_iff.1 h
  rw [eq_behindYear hp hyear h, eq_behindYear hq hyear h']

end Date.Pattern

/-! ## The forms of a time -/

theorem Time.Pattern.agree {p q : Pattern} {s : List Char} {t u : Time} (h : p.read? s = some t)
    (h' : q.read? s = some u) : t = u :=
  Option.some.inj ((ofText?_of_read? h).symm.trans (ofText?_of_read? h'))

/-! ## Coercion with any order of the forms -/

namespace Kind

/-- **The order of the forms does not matter.** A text has one form of a date at most, and two forms
of a time that fit a text give the same time, so a text is coerced to the same value in whatever
order the forms are tried. -/
theorem form_order_does_not_matter (raw : String) :
    (∀ p ∈ Date.Pattern.ofOption, ∀ q ∈ Date.Pattern.ofOption, ∀ d e,
      p.read? raw.toList = some d → q.read? raw.toList = some e → p = q ∧ d = e) ∧
    (∀ p ∈ Time.Pattern.ofOption, ∀ q ∈ Time.Pattern.ofOption, ∀ t u,
      p.read? raw.toList = some t → q.read? raw.toList = some u → t = u) ∧
    ∀ dates times, dates.Perm Date.Pattern.ofOption → times.Perm Time.Pattern.ofOption →
      ∀ kind : Kind, kind.coerceIn dates times raw = kind.coerce? raw := by
  have hdates : ∀ p ∈ Date.Pattern.ofOption, ∀ q ∈ Date.Pattern.ofOption, ∀ d e,
      p.read? raw.toList = some d → q.read? raw.toList = some e → p = q ∧ d = e := by
    intro p hp q hq d e hd he
    obtain rfl := Date.Pattern.eq_of_read? hp hq hd he
    exact ⟨rfl, Option.some.inj (hd.symm.trans he)⟩
  have htimes : ∀ p ∈ Time.Pattern.ofOption, ∀ q ∈ Time.Pattern.ofOption, ∀ t u,
      p.read? raw.toList = some t → q.read? raw.toList = some u → t = u :=
    fun p _ q _ t u ht hu => Time.Pattern.agree ht hu
  refine ⟨hdates, htimes, ?_⟩
  intro dates times hd ht kind
  rw [coerce?]
  cases kind with
  | plain => rfl
  | integer => rfl
  | date =>
    have hagree := findSome?_perm hd fun p hp q hq d e hp' hq' => (hdates p hp q hq d e hp' hq').2
    rw [coerceIn, coerceIn, hagree]
  | time => rw [coerceIn, coerceIn, findSome?_perm ht htimes]

/-- A time that has two forms, and a date whose form is tried last or first. -/
theorem form_order_does_not_matter_reversed :
    (∃ t u, Time.Pattern.seconds.read? "10:00:60".toList = some t ∧
      Time.Pattern.fraction.read? "10:00:60".toList = some u ∧ t = u) ∧
    Kind.time.coerceIn Date.Pattern.ofOption.reverse Time.Pattern.ofOption.reverse "10:00:60" =
      Kind.time.coerce? "10:00:60" ∧
    (∃ d, Kind.date.coerce? "20240229" = some (.date d) ∧
      Kind.date.coerceIn Date.Pattern.ofOption.reverse Time.Pattern.ofOption.reverse "20240229" =
        some (.date d)) := by
  let t : Time := ⟨10, 0, 60, 0, by decide, by decide, by decide, by decide⟩
  let d : Date := ⟨2024, 2, 29, by decide, by decide⟩
  have hseconds : Time.Pattern.seconds.read? "10:00:60".toList = some t := by decide +kernel
  have hfraction : Time.Pattern.fraction.read? "10:00:60".toList = some t := by decide +kernel
  have hd : Kind.date.coerce? "20240229" = some (.date d) := by decide +kernel
  have hdates := List.reverse_perm Date.Pattern.ofOption
  have htimes := List.reverse_perm Time.Pattern.ofOption
  obtain ⟨-, hagree, hsame⟩ := form_order_does_not_matter "10:00:60"
  refine ⟨⟨t, t, hseconds, hfraction, ?_⟩, hsame _ _ hdates htimes .time, d, hd, ?_⟩
  · exact hagree .seconds (by decide) .fraction (by decide) t t hseconds hfraction
  · rw [(form_order_does_not_matter "20240229").2.2 _ _ hdates htimes .date, hd]

end Kind

end Synopsis
