import Synopsis.Proofs.LatestDeclaration
import Synopsis.Proofs.Occurrences
import Synopsis.Proofs.PositionalBinding

/-!
# Matching never meets an inconsistency

Matching has branches that no argument list can reach: an option that is unknown although unknown
options were rejected, a value beyond the upper bound that is not there, a positional that was not
counted, a run that is longer than the values, a positional for which no value is left. Each of
them ends in an `internalInconsistency`. For a usage that was read from a text none of them is
ever taken: options are resolved only after the unknown ones were rejected, and values are bound
only after they were counted, which suffices because the positionals are coherent.
-/

namespace Synopsis

/-- The failure is the fault of the argument list. -/
def Failure.Proper (failure : Failure) : Prop :=
  ∀ detail, failure.error ≠ .internalInconsistency detail

namespace Resolution

theorem settle_proper {usage : Usage} {found : Matches} {c : Chunk} {failure : Failure}
    (hc : c.Known usage) (h : settle usage found c = .error failure) : failure.Proper := by
  obtain ⟨spec, hspec⟩ := Option.isSome_iff_exists.1 hc
  simp only [settle, hspec] at h
  split at h
  · cases h
  · split at h
    · cases h
      intro detail hd
      cases hd
    · split at h
      · cases h
        intro detail hd
        cases hd
      · cases h

theorem step_proper {usage : Usage} {r : Resolution} {c : Chunk} {failure : Failure}
    (hc : c.Known usage) (h : step usage r c = .error failure) : failure.Proper := by
  unfold step at h
  split at h
  · cases h
    intro detail hd
    cases hd
  · exact settle_proper hc h

/-- Resolving declared options fails only for what the argument list says. -/
theorem run_proper {usage : Usage} {r : Resolution} {cs : List Chunk} {failure : Failure}
    (hcs : ∀ c ∈ cs, c.Known usage) (h : run usage r cs = .error failure) : failure.Proper := by
  induction cs generalizing r with
  | nil => cases h
  | cons c cs ih =>
    unfold run at h
    split at h
    · next hstep =>
      cases h
      exact step_proper (hcs c (by simp)) hstep
    · exact ih (fun d hd => hcs d (by simp [hd])) h

end Resolution

namespace Positional

theorem checkLower_proper {lower stop : Nat} {values : List Token} {hint : Option String}
    {failure : Failure} (h : checkLower lower values hint stop = .error failure) :
    failure.Proper := by
  unfold checkLower at h
  split at h
  · cases h
    intro detail hd
    cases hd
  · cases h

/-- Where there are too many values, there is one beyond the upper bound. -/
theorem checkCount_proper {bound : Bound} {stop : Nat} {values : List Token}
    {hint : Option String} {failure : Failure}
    (h : checkCount bound values hint stop = .error failure) : failure.Proper := by
  cases bound with
  | atLeast lower => exact checkLower_proper h
  | range lower upper =>
    rw [checkCount] at h
    split at h
    · next hlt =>
      rw [List.getElem?_eq_getElem hlt] at h
      cases h
      intro detail hd
      cases hd
    · exact checkLower_proper h

end Positional

namespace Chunk

theorem expandGroup_proper {usage : Usage} {c : Chunk} {failure : Failure}
    (h : expandGroup usage c = .error failure) : failure.Proper := by
  unfold expandGroup at h
  split at h
  · cases h
  · split at h
    · cases h
      intro detail hd
      cases hd
    · cases h

theorem expandGroups_proper {usage : Usage} {chunks : List Chunk} {failure : Failure}
    (h : expandGroups usage chunks = .error failure) : failure.Proper := by
  induction chunks with
  | nil => cases h
  | cons c chunks ih =>
    unfold expandGroups at h
    split at h
    · next hc =>
      cases h
      exact expandGroup_proper hc
    · cases hrest : expandGroups usage chunks with
      | error e =>
        rw [hrest] at h ih
        cases h
        exact ih rfl
      | ok rest =>
        rw [hrest] at h
        cases h

end Chunk

namespace Usage

theorem occurrences_proper {usage : Usage} {chunks : List Chunk} {failure : Failure}
    (h : usage.occurrences chunks = .error failure) : failure.Proper := by
  unfold occurrences at h
  split at h
  · next hg =>
    cases h
    exact Chunk.expandGroups_proper hg
  · dsimp only at h
    split at h
    · cases h
      intro detail hd
      cases hd
    · cases h

theorem complete_proper {usage : Usage} (hc : Coherent usage.arguments) {leading : List Token}
    {cs : List Chunk} {stop : Nat} {failure : Failure} (hcs : ∀ c ∈ cs, c.Known usage)
    (h : usage.complete leading cs stop = .error failure) : failure.Proper := by
  unfold complete at h
  split at h
  · next hrun =>
    cases h
    exact Resolution.run_proper hcs hrun
  · next r hrun =>
    split at h
    · next hcount =>
      cases h
      exact Positional.checkCount_proper hcount
    · next hcount =>
      -- Binding cannot fail: the values have just been counted.
      have htakes := (bound_accepts_iff hc _).1 (Positional.checkCount_eq_ok_iff.1 hcount)
      rw [Positional.bind_eq_ok hc htakes] at h
      cases h

/-- **No argument list makes matching inconsistent.** Every failure is the fault of the argument
list, and every place in the flag table is a place in the list of options. -/
theorem fit_never_inconsistent {given : Option String} {text : String} {usage : Usage}
    (h : read given text = .ok usage) (texts : List String) :
    (∀ offset detail, usage.fit texts ≠ .error ⟨offset, .internalInconsistency detail⟩) ∧
    ∀ flag place, usage.flagTable.get? flag = some place → place < usage.options.length := by
  refine ⟨?_, fun flag place => (indexed_of_read h).place_lt⟩
  intro offset detail hfit
  have hproper : Failure.Proper ⟨offset, .internalInconsistency detail⟩ := by
    unfold fit at hfit
    dsimp only at hfit
    split at hfit
    · cases hfit
    · split at hfit
      · next hocc =>
        cases hfit
        exact occurrences_proper hocc
      · next cs hocc =>
        have hknown := (occurrences_eq_ok_iff.1 hocc).2
        cases hcomplete : usage.complete (Chunk.cut (Token.numbered texts)).1 cs texts.length with
        | error failure =>
          rw [hcomplete] at hfit
          cases hfit
          exact complete_proper (coherent_of_read h) hknown hcomplete
        | ok found =>
          rw [hcomplete] at hfit
          cases hfit
  exact hproper detail rfl

/-- Here the run is the first positional, and there are as many values as the bound asks for. -/
theorem fit_never_inconsistent_run_first :
    ∃ usage, read none "Usage: p [-n NUM] files... dest" = .ok usage ∧
      ∀ offset detail,
        usage.fit ["-n", "3", "a", "b"] ≠ .error ⟨offset, .internalInconsistency detail⟩ := by
  let usage : Usage :=
    { program := "p"
      message := "Usage: p [-n NUM] files... dest"
      arguments := [⟨"files", .repeated⟩, ⟨"dest", .required⟩]
      options := [⟨"n", .short 'n', some "NUM"⟩]
      flagTable := NameMap.empty.insertAll [("-n", 0)]
      defaults := .empty }
  have hread : read none "Usage: p [-n NUM] files... dest" = .ok usage := by decide +kernel
  exact ⟨usage, hread, (fit_never_inconsistent hread _).1⟩

end Usage

end Synopsis
