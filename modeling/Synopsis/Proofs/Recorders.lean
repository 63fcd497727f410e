import Mathlib.Data.List.Induction
import Synopsis.CommandLine
import Synopsis.Proofs.Grammar

/-!
# Replies and the recorders that keep them

A command line answers in one of four ways (`Usage.Answers`): with a value and no call, with the
help message, with an error and a caret at the token at fault, or with an error alone where no
value can be read from the matches.

The memory recorder keeps the latest error and the latest caret, and the channel recorder gives
back all errors, joined, and the first caret. So they differ in general, and agree exactly on the
calls with at most one error and with no caret other than the first (`Interface.agree_iff`). No
reply has more than one error or more than one caret.
-/

namespace Synopsis

/-! ## Calls by kind -/

namespace Call

/-- The message that the call prints. -/
def message? : Call → Option String
  | .print message => some message
  | _ => none

/-- The error that the call prints. -/
def error? : Call → Option String
  | .printError text => some text
  | _ => none

/-- The caret that the call shows. -/
def caret? : Call → Option Caret
  | .pointAt caret => some caret
  | _ => none

end Call

namespace Interface

/-- The messages among the calls. -/
def messages (calls : List Call) : List String := calls.filterMap Call.message?

/-- The errors among the calls. -/
def errors (calls : List Call) : List String := calls.filterMap Call.error?

/-- The carets among the calls. -/
def carets (calls : List Call) : List Caret := calls.filterMap Call.caret?

theorem filterMap_concat {α β : Type} (f : α → Option β) (l : List α) (a : α) :
    (l ++ [a]).filterMap f = l.filterMap f ++ (f a).toList := by
  rw [List.filterMap_append, List.filterMap_cons]
  cases f a <;> rfl

theorem messages_concat (calls : List Call) (c : Call) :
    messages (calls ++ [c]) = messages calls ++ c.message?.toList :=
  filterMap_concat Call.message? calls c

theorem errors_concat (calls : List Call) (c : Call) :
    errors (calls ++ [c]) = errors calls ++ c.error?.toList :=
  filterMap_concat Call.error? calls c

theorem carets_concat (calls : List Call) (c : Call) :
    carets (calls ++ [c]) = carets calls ++ c.caret?.toList :=
  filterMap_concat Call.caret? calls c

/-! ## The memory recorder -/

theorem remember_concat (calls : List Call) (c : Call) :
    remember (calls ++ [c]) = (remember calls).record c := by
  rw [remember, List.foldl_append]
  rfl

theorem messages_remember (calls : List Call) :
    (remember calls).messages = if messages calls = [] then none else some (messages calls) := by
  induction calls using List.reverseRecOn with
  | nil => rfl
  | append_singleton calls c ih =>
    rw [remember_concat, messages_concat]
    cases c with
    | print message =>
      simp only [Memory.record, ih, Call.message?, Option.toList_some]
      by_cases hnone : messages calls = [] <;> simp [hnone]
    | printError text => simpa [Memory.record, Call.message?] using ih
    | pointAt caret => simpa [Memory.record, Call.message?] using ih

theorem error_remember (calls : List Call) :
    (remember calls).error = (errors calls).getLast? := by
  induction calls using List.reverseRecOn with
  | nil => rfl
  | append_singleton calls c ih =>
    rw [remember_concat, errors_concat]
    cases c <;> simp [Memory.record, Call.error?, ih]

theorem caret_remember (calls : List Call) :
    (remember calls).caret = (carets calls).getLast? := by
  induction calls using List.reverseRecOn with
  | nil => rfl
  | append_singleton calls c ih =>
    rw [remember_concat, carets_concat]
    cases c <;> simp [Memory.record, Call.caret?, ih]

/-- The memory recorder gives back the latest error and the latest caret. -/
theorem recorded_remember (calls : List Call) :
    (remember calls).recorded =
      ⟨Channel.joined? (messages calls), (errors calls).getLast?, (carets calls).getLast?⟩ := by
  rw [Memory.recorded, messages_remember, error_remember, caret_remember]
  cases messages calls <;> rfl

/-! ## The channel recorder -/

/-- Each call stands in the queue of its kind. -/
theorem foldl_send (calls : List Call) :
    calls.foldl Channel.send .empty =
      ⟨(messages calls).map some, (errors calls).map some, (carets calls).map some⟩ := by
  induction calls using List.reverseRecOn with
  | nil => rfl
  | append_singleton calls c ih =>
    rw [List.foldl_append, ih, messages_concat, errors_concat, carets_concat]
    cases c <;> simp [Channel.send, Call.message?, Call.error?, Call.caret?]

theorem drain_closed {α : Type} (entries : List α) :
    Channel.drain (entries.map some ++ [none]) = entries := by
  induction entries with
  | nil => rfl
  | cons entry entries ih =>
    rw [List.map_cons, List.cons_append, Channel.drain, ih]

/-- The channel recorder gives back all errors and the first caret. -/
theorem receive_eq (calls : List Call) :
    receive calls =
      ⟨Channel.joined? (messages calls), Channel.joined? (errors calls),
        (carets calls).head?⟩ := by
  rw [receive, foldl_send, Channel.close, Channel.recorded, drain_closed, drain_closed]
  cases carets calls <;> rfl

/-! ## Agreement -/

theorem length_getLast_le_joined {texts : List String} (h : texts ≠ []) :
    (texts.getLast h).length ≤ ("\n".intercalate texts).length := by
  induction texts with
  | nil => exact absurd rfl h
  | cons text texts ih =>
    cases texts with
    | nil => simp
    | cons next texts =>
      have hlast := ih (List.cons_ne_nil next texts)
      rw [String.intercalate_cons_of_ne_nil (List.cons_ne_nil next texts)]
      simp only [List.getLast_cons_cons, String.length_append]
      omega

/-- Joined texts are the last of them only if that is the first. -/
theorem joined?_eq_getLast?_iff (texts : List String) :
    Channel.joined? texts = texts.getLast? ↔ texts.length ≤ 1 := by
  match texts with
  | [] => simp [Channel.joined?]
  | [text] => simp [Channel.joined?]
  | text :: next :: texts =>
    have hne := List.cons_ne_nil next texts
    have hlast := length_getLast_le_joined hne
    have hlonger : (("\n".intercalate (text :: next :: texts)).length) ≠
        ((next :: texts).getLast hne).length := by
      rw [String.intercalate_cons_of_ne_nil hne, String.length_append, String.length_append]
      have hfeed : "\n".length = 1 := rfl
      omega
    refine iff_of_false ?_ (by simp)
    intro h
    rw [List.getLast?_cons_cons, List.getLast?_eq_some_getLast hne] at h
    exact hlonger (congrArg String.length (Option.some.inj h))

/-- The recorders agree exactly on calls with at most one error, and no caret but the first. -/
theorem agree_iff (calls : List Call) :
    (remember calls).recorded = receive calls ↔
      (errors calls).length ≤ 1 ∧ (carets calls).head? = (carets calls).getLast? := by
  rw [recorded_remember, receive_eq, Recorded.mk.injEq, ← joined?_eq_getLast?_iff]
  constructor
  · rintro ⟨-, herror, hcaret⟩
    exact ⟨herror.symm, hcaret.symm⟩
  · rintro ⟨herror, hcaret⟩
    exact ⟨rfl, herror.symm, hcaret.symm⟩

/-- Of two errors the memory keeps the second, and the channel both. -/
example : (remember [.printError "a", .printError "b"]).recorded ≠
    receive [.printError "a", .printError "b"] := by decide

theorem agree_of_length_le_one {calls : List Call} (herrors : (errors calls).length ≤ 1)
    (hcarets : (carets calls).length ≤ 1) : (remember calls).recorded = receive calls := by
  refine (agree_iff calls).2 ⟨herrors, ?_⟩
  match hcase : carets calls with
  | [] => rfl
  | [caret] => rfl
  | caret :: next :: rest => simp [hcase] at hcarets

end Interface

/-! ## Replies -/

namespace Usage

variable {α : Type}

/-- What a command line may answer if a value is to be read from the matches. -/
inductive Answers (usage : Usage) (read : Matches → Except ExtractError α)
    (tokens : List String) : Reply α → Prop
  /-- The tokens fit, and a value can be read. -/
  | value {found : Matches} {value : α} (hfit : usage.fit tokens = .ok (.complete found))
      (hread : read found = .ok value) : Answers usage read tokens ⟨[], .ok value⟩
  /-- Help is asked for. -/
  | help (hfit : usage.fit tokens = .ok (.showUsage usage.message)) :
      Answers usage read tokens ⟨[.print usage.message], .error 0⟩
  /-- The tokens do not fit. -/
  | misfit {offset : Nat} {error : MatchError} (hfit : usage.fit tokens = .error ⟨offset, error⟩) :
      Answers usage read tokens
        ⟨[.printError error.message, .pointAt ⟨offset, tokens⟩], .error 1⟩
  /-- The tokens fit, but no value can be read. -/
  | unreadable {found : Matches} {error : ExtractError}
      (hfit : usage.fit tokens = .ok (.complete found)) (hread : read found = .error error) :
      Answers usage read tokens ⟨[.printError error.message], .error 1⟩

theorem answers_replyWith (usage : Usage) (read : Matches → Except ExtractError α)
    (tokens : List String) : usage.Answers read tokens (usage.replyWith read tokens) := by
  rw [replyWith, reply]
  cases hfit : usage.fit tokens with
  | error failure => exact .misfit hfit
  | ok outcome =>
    cases outcome with
    | showUsage message =>
      obtain ⟨rfl, -⟩ := fit_eq_showUsage_iff.1 hfit
      exact .help hfit
    | complete found =>
      cases hread : read found with
      | ok value => simpa [hread] using Answers.value hfit hread
      | error e => simpa [hread] using Answers.unreadable hfit hread

/-- There is one answer. -/
theorem answers_iff {usage : Usage} {read : Matches → Except ExtractError α}
    {tokens : List String} {r : Reply α} :
    usage.Answers read tokens r ↔ r = usage.replyWith read tokens := by
  constructor
  · intro h
    rw [replyWith, reply]
    cases h with
    | value hfit hread => simp [hfit, hread]
    | help hfit => simp [hfit]
    | misfit hfit => simp [hfit]
    | unreadable hfit hread => simp [hfit, hread]
  · rintro rfl
    exact answers_replyWith usage read tokens

/-- Without a value to be read, the answer is that of reading the matches themselves. -/
theorem replyWith_ok (usage : Usage) (tokens : List String) :
    usage.replyWith .ok tokens = usage.reply tokens := by
  rw [replyWith, reply]
  split <;> simp_all

theorem Answers.calls_once {usage : Usage} {read : Matches → Except ExtractError α}
    {tokens : List String} {r : Reply α} (h : usage.Answers read tokens r) :
    (Interface.errors r.calls).length ≤ 1 ∧ (Interface.carets r.calls).length ≤ 1 := by
  cases h <;>
    simp [Interface.errors, Interface.carets, List.filterMap_cons, Call.error?, Call.caret?]

/-- **Every reply makes the calls of one of four answers, and the recorders agree on them.** A value
comes without a call; help, a misfit and an unreadable value come with their own calls and exit
codes. On any calls with at most one error and at most one caret both recorders give back the same,
so they do after a reply, whether a value is to be read from the matches or not. -/
theorem recorders_agree_on_replies (usage : Usage) (read : Matches → Except ExtractError α)
    (tokens : List String) :
    (∀ r, r = usage.replyWith read tokens ↔ usage.Answers read tokens r) ∧
    (∀ calls, (Interface.errors calls).length ≤ 1 → (Interface.carets calls).length ≤ 1 →
      (Interface.remember calls).recorded = Interface.receive calls) ∧
    (Interface.remember (usage.replyWith read tokens).calls).recorded =
      Interface.receive (usage.replyWith read tokens).calls ∧
    (Interface.remember (usage.reply tokens).calls).recorded =
      Interface.receive (usage.reply tokens).calls := by
  refine ⟨fun r => answers_iff.symm, fun calls => Interface.agree_of_length_le_one, ?_, ?_⟩
  · obtain ⟨herrors, hcarets⟩ := (answers_replyWith usage read tokens).calls_once
    exact Interface.agree_of_length_le_one herrors hcarets
  · obtain ⟨herrors, hcarets⟩ := (answers_replyWith usage .ok tokens).calls_once
    rw [replyWith_ok] at herrors hcarets
    exact Interface.agree_of_length_le_one herrors hcarets

/-- A caret before the error and messages around both: two messages are given back in order. -/
theorem recorders_agree_on_replies_interleaved :
    (Interface.remember
      [.print "a", .pointAt ⟨1, ["x", "é"]⟩, .print "", .printError "e"]).recorded =
        Interface.receive [.print "a", .pointAt ⟨1, ["x", "é"]⟩, .print "", .printError "e"] ∧
    Interface.receive [.print "a", .pointAt ⟨1, ["x", "é"]⟩, .print "", .printError "e"] =
      ⟨some "a\n", some "e", some ⟨1, ["x", "é"]⟩⟩ := by
  obtain ⟨-, hagree, -⟩ :=
    recorders_agree_on_replies ⟨"p", "Usage: p", [], [], .empty, .empty⟩
      (fun found => Except.ok found) []
  exact ⟨hagree _ (by decide) (by decide), by decide +kernel⟩

end Usage

end Synopsis
