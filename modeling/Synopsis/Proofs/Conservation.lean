import Mathlib.Data.List.Forall2
import Synopsis.Proofs.Spelling

/-!
# No token is lost on the way to its option

Before options are resolved, an argument list is cut into chunks, groups are written out, and then
numbers. None of these steps loses, doubles or moves a token.

Cutting keeps every token in its place. Writing out replaces each chunk by a block of chunks
(`Chunk.Yields`), whatever the chunks around it. All of a block stands at the offset of the chunk,
so the offsets of the leaders never decrease, and the values go to the last of the block.

Only the digits of a number become a value that was no token of its own. They are told from the
other values by their offset, which is that of their leader: the tokens that follow a leader stand
further on (`Chunk.Forward`).
-/

namespace Synopsis

/-! ## The order of tokens and chunks -/

/-- Every token stands further on than those before it. -/
def Token.Ascending (ts : List Token) : Prop := ts.Pairwise fun s t => s.offset < t.offset

namespace Token

theorem numberedFrom_eq_zipIdx (offset : Nat) (texts : List String) :
    numberedFrom offset texts = (texts.zipIdx offset).map fun (text, i) => ⟨i, text⟩ := by
  induction texts generalizing offset with
  | nil => rfl
  | cons text texts ih => rw [numberedFrom, ih, List.zipIdx_cons, List.map_cons]

theorem ascending_numbered (texts : List String) : Ascending (numbered texts) := by
  have hoffsets : (numbered texts).map offset = List.range' 0 texts.length := by
    rw [numbered, numberedFrom_eq_zipIdx, List.map_map]
    exact List.zipIdx_map_snd 0 texts
  rw [Ascending, ← List.pairwise_map (f := offset) (R := (· < ·)), hoffsets]
  exact List.pairwise_lt_range'

end Token

namespace Chunk

variable {usage : Usage} {ts : List Token} {c w : Chunk} {block : List Chunk}

theorem pairwise_leaders_cut (h : Token.Ascending ts) :
    (cut ts).2.Pairwise fun c d => c.leader.offset < d.leader.offset := by
  have hleaders : Token.Ascending ((cut ts).2.map leader) := by
    rw [leaders_cut]
    exact h.filter _
  rwa [Token.Ascending, List.pairwise_map] at hleaders

/-- The values of the chunk stand further on than its leader. -/
def Forward (c : Chunk) : Prop := ∀ v ∈ c.values, c.leader.offset < v.offset

theorem forward_of_mem_cut (h : Token.Ascending ts) (hc : c ∈ (cut ts).2) : c.Forward := by
  rw [Token.Ascending, ← cut_toTokens ts, List.pairwise_append] at h
  have htokens : Token.Ascending c.toTokens := (List.pairwise_flatMap.1 h.2.1).1 c hc
  intro v hv
  exact List.rel_of_pairwise_cons htokens hv

/-! ## The block that a chunk is replaced by -/

/-- What a chunk is replaced by when shorthands are written out. -/
inductive Yields (usage : Usage) (c : Chunk) : List Chunk → Prop
  /-- A group gives one chunk per letter, and the last of them has the values. -/
  | group {letters : List Char} {last : Char}
      (text : c.leader.text = String.ofList ('-' :: (letters ++ [last])))
      (many : letters ≠ []) (alpha : (letters ++ [last]).all Char.isAlpha) :
      Yields usage c
        (letters.map (fun letter => ⟨⟨c.leader.offset, Flags.shortToken letter⟩, []⟩) ++
          [⟨⟨c.leader.offset, Flags.shortToken last⟩, c.values⟩])
  /-- A number gives `-n` with the digits in front of the values, if `-n` takes a value. -/
  | number {digits : List Char} (allowed : numericAllowed usage)
      (text : c.leader.text = String.ofList ('-' :: digits))
      (nonempty : digits ≠ []) (digit : digits.all Char.isDigit) :
      Yields usage c
        [⟨⟨c.leader.offset, numericFlag⟩, ⟨c.leader.offset, String.ofList digits⟩ :: c.values⟩]
  /-- Everything else stays as it is. -/
  | plain (h : ¬usage.IsShorthand c.leader.text) : Yields usage c [c]

theorem spread_concat (offset : Nat) (values : List Token) (letters : List Char) (last : Char) :
    spread offset values (letters ++ [last]) =
      letters.map (fun letter => ⟨⟨offset, Flags.shortToken letter⟩, []⟩) ++
        [⟨⟨offset, Flags.shortToken last⟩, values⟩] := by
  induction letters with
  | nil => rfl
  | cons letter letters ih =>
    rw [List.cons_append, spread, ih, List.map_cons, List.cons_append]
    -- Something follows the letter, so it is not the last.
    simp

theorem yields_written (usage : Usage) (c : Chunk) : c.Yields usage (c.written usage) := by
  rcases usage.spell_cases c.leader.text with ⟨letters, hl⟩ | ⟨digits, hn, hd⟩ | hplain
  · obtain ⟨htext, hlen, halpha⟩ := groupLetters?_eq_some_iff.1 hl
    rw [written_group hl]
    rcases List.eq_nil_or_concat letters with rfl | ⟨first, last, rfl⟩
    · simp at hlen
    · rw [List.concat_eq_append] at htext hlen halpha ⊢
      rw [spread_concat]
      refine .group htext ?_ halpha
      rintro rfl
      simp at hlen
  · obtain ⟨htext, hne, hdigits⟩ := numberDigits?_eq_some_iff.1 hd
    rw [written_number hn hd]
    exact .number hn htext hne hdigits
  · rw [written_plain hplain]
    exact .plain hplain

/-- The digits of the number at the head of the chunk, if there is one and it counts as such. -/
def numberToken? (usage : Usage) (c : Chunk) : Option Token :=
  if numericAllowed usage then
    (numberDigits? c.leader.text).map fun digits => ⟨c.leader.offset, String.ofList digits⟩
  else none

theorem numberToken?_eq_none (h : numericAllowed usage → numberDigits? c.leader.text = none) :
    c.numberToken? usage = none := by
  rw [numberToken?]
  split
  · next hn => rw [h hn, Option.map_none]
  · rfl

theorem offset_of_numberToken? {t : Token} (h : c.numberToken? usage = some t) :
    t.offset = c.leader.offset := by
  obtain ⟨-, h⟩ := Option.ite_none_right_eq_some.1 h
  obtain ⟨digits, -, rfl⟩ := Option.map_eq_some_iff.1 h
  rfl

namespace Yields

theorem leader_offset (h : c.Yields usage block) (hw : w ∈ block) :
    w.leader.offset = c.leader.offset := by
  cases h with
  | group text many alpha =>
    rcases List.mem_append.1 hw with hw | hw
    · obtain ⟨letter, -, rfl⟩ := List.mem_map.1 hw
      rfl
    · rw [List.mem_singleton.1 hw]
  | number allowed text nonempty digit => rw [List.mem_singleton.1 hw]
  | plain h => rw [List.mem_singleton.1 hw]

/-- The block has the values of the chunk, in their order, and before them the digits of a
number. -/
theorem flatMap_values (h : c.Yields usage block) :
    block.flatMap values = (c.numberToken? usage).toList ++ c.values := by
  cases h with
  | group text many alpha =>
    have hnumber : c.numberToken? usage = none :=
      numberToken?_eq_none fun _ => by rw [text, numberDigits?_of_isAlpha alpha]
    simp [hnumber, List.flatMap_map]
  | number allowed text nonempty digit =>
    have hdigits := numberDigits?_eq_some_iff.2 ⟨text, nonempty, digit⟩
    simp [numberToken?, allowed, hdigits]
  | plain h =>
    have hnumber : c.numberToken? usage = none := by
      refine numberToken?_eq_none fun hn => ?_
      rw [← Option.not_isSome_iff_eq_none]
      exact fun hd => h (.inr ⟨hn, hd⟩)
    simp [hnumber]

end Yields

/-- The values that are tokens of their own. -/
def separateValues (c : Chunk) : List Token := c.values.filter fun v => v.offset ≠ c.leader.offset

/-- The values that are part of the token at the head. -/
def attachedValues (c : Chunk) : List Token := c.values.filter fun v => v.offset = c.leader.offset

namespace Yields

/-- To ask each chunk of the block for values by the offset of its leader is to ask the chunk. -/
theorem flatMap_filter (h : c.Yields usage block) (p : Nat → Token → Bool) :
    (block.flatMap fun w => w.values.filter (p w.leader.offset)) =
      (c.numberToken? usage).toList.filter (p c.leader.offset) ++
        c.values.filter (p c.leader.offset) := by
  rw [← List.filter_append, ← h.flatMap_values, List.filter_flatMap]
  exact List.flatMap_congr fun w hw => by rw [h.leader_offset hw]

theorem flatMap_separateValues (h : c.Yields usage block) (hc : c.Forward) :
    block.flatMap separateValues = c.values := by
  have hdigits :
      (c.numberToken? usage).toList.filter (fun v => v.offset ≠ c.leader.offset) = [] := by
    rw [List.filter_eq_nil_iff]
    intro t ht
    simpa using offset_of_numberToken? (Option.mem_toList.1 ht)
  have hvalues : c.values.filter (fun v => v.offset ≠ c.leader.offset) = c.values := by
    rw [List.filter_eq_self]
    intro v hv
    simpa using Nat.ne_of_gt (hc v hv)
  have hfilter := h.flatMap_filter fun offset v => v.offset ≠ offset
  rwa [hdigits, hvalues, List.nil_append] at hfilter

theorem flatMap_attachedValues (h : c.Yields usage block) (hc : c.Forward) :
    block.flatMap attachedValues = (c.numberToken? usage).toList := by
  have hdigits : (c.numberToken? usage).toList.filter (fun v => v.offset = c.leader.offset) =
      (c.numberToken? usage).toList := by
    rw [List.filter_eq_self]
    intro t ht
    simpa using offset_of_numberToken? (Option.mem_toList.1 ht)
  have hvalues : c.values.filter (fun v => v.offset = c.leader.offset) = [] := by
    rw [List.filter_eq_nil_iff]
    intro v hv
    simpa using Nat.ne_of_gt (hc v hv)
  have hfilter := h.flatMap_filter fun offset v => v.offset = offset
  rwa [hdigits, hvalues, List.append_nil] at hfilter

end Yields

/-! ## All chunks of an argument list -/

variable {texts : List String} {leading : List Token} {chunks : List Chunk}

theorem separateValues_written (usage : Usage) (h : ∀ c ∈ chunks, c.Forward) :
    (chunks.flatMap (written usage)).flatMap separateValues = chunks.flatMap values := by
  rw [List.flatMap_assoc]
  exact List.flatMap_congr fun c hc => (yields_written usage c).flatMap_separateValues (h c hc)

theorem attachedValues_written (usage : Usage) (h : ∀ c ∈ chunks, c.Forward) :
    (chunks.flatMap (written usage)).flatMap attachedValues =
      chunks.filterMap (numberToken? usage) := by
  rw [List.flatMap_assoc, List.filterMap_eq_flatMap_toList]
  exact List.flatMap_congr fun c hc => (yields_written usage c).flatMap_attachedValues (h c hc)

/-- Within a block leaders share an offset, and from block to block it grows. -/
theorem pairwise_leaders_written (usage : Usage)
    (h : chunks.Pairwise fun c d => c.leader.offset < d.leader.offset) :
    (chunks.flatMap (written usage)).Pairwise fun w w' => w.leader.offset ≤ w'.leader.offset := by
  have hoffset : ∀ c, ∀ w ∈ written usage c, w.leader.offset = c.leader.offset :=
    fun c w hw => (yields_written usage c).leader_offset hw
  rw [List.pairwise_flatMap]
  constructor
  · intro c _
    apply List.pairwise_of_forall_mem_list
    intro w hw w' hw'
    exact Nat.le_of_eq ((hoffset c w hw).trans (hoffset c w' hw').symm)
  · apply h.imp
    intro c d hlt w hw w' hw'
    rw [hoffset c w hw, hoffset d w' hw']
    exact Nat.le_of_lt hlt

/-- **No token is lost or moved.** The leading values, and then each leader with its values, are
the texts of the argument list, each with its place; leaders start with a dash, and values do not.
If groups can be written out, each chunk is replaced by its block. The values of all blocks are the
values of all chunks, in their order, but for the digits of numbers, and no leader stands before
one that comes earlier. -/
theorem no_token_lost_or_moved (hcut : cut (Token.numbered texts) = (leading, chunks)) :
    leading ++ chunks.flatMap toTokens = texts.zipIdx.map (fun (text, i) => ⟨i, text⟩) ∧
    (∀ v ∈ leading, v.isDashed = false) ∧ (∀ c ∈ chunks, c.WellCut) ∧
    ∀ usage grouped, expandGroups usage chunks = .ok grouped →
      ∃ blocks, expandNumbers usage grouped = blocks.flatten ∧
        List.Forall₂ (Yields usage) chunks blocks ∧
        blocks.flatten.flatMap separateValues = chunks.flatMap values ∧
        blocks.flatten.flatMap attachedValues = chunks.filterMap (numberToken? usage) ∧
        blocks.flatten.Pairwise fun w w' => w.leader.offset ≤ w'.leader.offset := by
  have hascending := Token.ascending_numbered texts
  have htokens := cut_toTokens (Token.numbered texts)
  have hleaders := pairwise_leaders_cut hascending
  have hforward : ∀ c ∈ (cut (Token.numbered texts)).2, c.Forward :=
    fun c hc => forward_of_mem_cut hascending hc
  obtain ⟨hleading, hchunks⟩ := wellCut_cut (Token.numbered texts)
  rw [hcut] at htokens hleaders hforward hleading hchunks
  refine ⟨htokens.trans (Token.numberedFrom_eq_zipIdx 0 texts), hleading, hchunks, ?_⟩
  intro usage grouped hgrouped
  obtain ⟨rfl, -⟩ := expandGroups_eq_ok_iff.1 hgrouped
  refine ⟨chunks.map (written usage), expandNumbers_flatMap_ungrouped usage chunks, ?_, ?_⟩
  · exact List.forall₂_map_right_iff.2 (List.forall₂_same.2 fun c _ => yields_written usage c)
  · rw [← List.flatMap_def]
    exact ⟨separateValues_written usage hforward, attachedValues_written usage hforward,
      pairwise_leaders_written usage hleaders⟩

/-- A group whose last letter takes a value, and a number with a value behind it. -/
theorem no_token_lost_or_moved_group_number :
    ∃ (usage : Usage) (leading : List Token) (chunks grouped : List Chunk)
      (blocks : List (List Chunk)),
      Usage.read none "Usage: p [-v] [-n NUM] [file]" = .ok usage ∧
      cut (Token.numbered ["a", "-vn", "5", "x", "-15", "y"]) = (leading, chunks) ∧
      expandGroups usage chunks = .ok grouped ∧ expandNumbers usage grouped = blocks.flatten ∧
      List.Forall₂ (Yields usage) chunks blocks ∧ blocks.length = 2 ∧
      blocks.flatten = [⟨⟨1, "-v"⟩, []⟩, ⟨⟨1, "-n"⟩, [⟨2, "5"⟩, ⟨3, "x"⟩]⟩,
        ⟨⟨4, "-n"⟩, [⟨4, "15"⟩, ⟨5, "y"⟩]⟩] ∧
      blocks.flatten.flatMap separateValues = [⟨2, "5"⟩, ⟨3, "x"⟩, ⟨5, "y"⟩] ∧
      blocks.flatten.flatMap attachedValues = [⟨4, "15"⟩] := by
  let usage : Usage :=
    { program := "p"
      message := "Usage: p [-v] [-n NUM] [file]"
      arguments := [⟨"file", .optional⟩]
      options := [⟨"v", .short 'v', none⟩, ⟨"n", .short 'n', some "NUM"⟩]
      flagTable := NameMap.empty.insertAll [("-v", 0), ("-n", 1)]
      defaults := .empty }
  let chunks : List Chunk :=
    [⟨⟨1, "-vn"⟩, [⟨2, "5"⟩, ⟨3, "x"⟩]⟩, ⟨⟨4, "-15"⟩, [⟨5, "y"⟩]⟩]
  let grouped : List Chunk :=
    [⟨⟨1, "-v"⟩, []⟩, ⟨⟨1, "-n"⟩, [⟨2, "5"⟩, ⟨3, "x"⟩]⟩, ⟨⟨4, "-15"⟩, [⟨5, "y"⟩]⟩]
  have hcut : cut (Token.numbered ["a", "-vn", "5", "x", "-15", "y"]) = ([⟨0, "a"⟩], chunks) := by
    decide +kernel
  have hgrouped : expandGroups usage chunks = .ok grouped := rfl
  have hexpanded : expandNumbers usage grouped = [⟨⟨1, "-v"⟩, []⟩,
      ⟨⟨1, "-n"⟩, [⟨2, "5"⟩, ⟨3, "x"⟩]⟩, ⟨⟨4, "-n"⟩, [⟨4, "15"⟩, ⟨5, "y"⟩]⟩] := by decide +kernel
  obtain ⟨-, -, -, hexpand⟩ := no_token_lost_or_moved hcut
  obtain ⟨blocks, hflat, hyields, hseparate, hattached, -⟩ := hexpand usage grouped hgrouped
  exact ⟨usage, _, chunks, grouped, blocks, by decide +kernel, hcut, hgrouped, hflat, hyields,
    hyields.length_eq.symm, hflat.symm.trans hexpanded, hseparate,
    hattached.trans (by decide +kernel)⟩

end Chunk

end Synopsis
