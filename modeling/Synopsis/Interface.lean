import Synopsis.Caret

/-!
# Talking to the user

A command line tells its user something by *calls*: a message, an error, or a caret at the token
at fault. What becomes of a sequence of calls depends on the interface. The console writes
messages to standard output and the rest to standard error, a line feed after each. Two recorders
keep the calls instead, to be read back afterwards: the memory recorder keeps the latest error and
the latest caret, the channel recorder keeps all errors and the first caret.
-/

namespace Synopsis

/-- Something told to the user. Models the methods of `UserInterface`. -/
inductive Call where
  | print (message : String)
  | printError (text : String)
  | pointAt (caret : Caret)
deriving DecidableEq, Repr

/-- What a recorder gives back. -/
structure Recorded where
  message : Option String
  error : Option String
  caret : Option Caret
deriving DecidableEq, Repr

namespace Interface

/-- What the memory recorder holds. There is a list of messages from the first message on. Models
`InMemoryInterface`. -/
structure Memory where
  messages : Option (List String)
  error : Option String
  caret : Option Caret
deriving DecidableEq, Repr

namespace Memory

/-- The memory before the first call. -/
def empty : Memory := ⟨none, none, none⟩

/-- Keep one more call. -/
def record (m : Memory) : Call → Memory
  | .print message => { m with messages := some (m.messages.getD [] ++ [message]) }
  | .printError text => { m with error := some text }
  | .pointAt caret => { m with caret := some caret }

/-- Read the memory back. Models `InMemoryInterface::consume`. -/
def recorded (m : Memory) : Recorded :=
  ⟨m.messages.map fun messages => "\n".intercalate messages, m.error, m.caret⟩

/-- Read the memory back where nothing but messages is expected. Models `consume_message`. -/
def onlyMessage? (m : Memory) : Option String :=
  match m.recorded with
  | ⟨some message, none, none⟩ => some message
  | _ => none

end Memory

/-- The memory after a sequence of calls. -/
def remember (calls : List Call) : Memory := calls.foldl Memory.record .empty

/-- What has been sent to the channel recorder: a queue for each kind of call. An entry `none` says
that no more will come. Models the queues of `channel_interface`. -/
structure Channel where
  messages : List (Option String)
  errors : List (Option String)
  carets : List (Option Caret)
deriving DecidableEq, Repr

namespace Channel

/-- The channel before the first call. -/
def empty : Channel := ⟨[], [], []⟩

/-- Send one more call. Models `SenderInterface`. -/
def send (c : Channel) : Call → Channel
  | .print message => { c with messages := c.messages ++ [some message] }
  | .printError text => { c with errors := c.errors ++ [some text] }
  | .pointAt caret => { c with carets := c.carets ++ [some caret] }

/-- Say on every queue that no more will come. Models what a `SenderInterface` does when it is
dropped. -/
def close (c : Channel) : Channel :=
  ⟨c.messages ++ [none], c.errors ++ [none], c.carets ++ [none]⟩

/-- The entries of a queue up to the one that says that no more will come. -/
def drain {α : Type} : List (Option α) → List α
  | some entry :: rest => entry :: drain rest
  | none :: _ => []
  | [] => []

/-- Texts with a line feed between each two of them, if there is any. -/
def joined? : List String → Option String
  | [] => none
  | texts => some ("\n".intercalate texts)

/-- Receive what was sent: all messages, all errors, and the first caret. Models
`ReceiverInterface::consume`. -/
def recorded (c : Channel) : Recorded :=
  ⟨joined? (drain c.messages), joined? (drain c.errors), c.carets.head?.join⟩

end Channel

/-- What the channel recorder gives back once no more calls can come. -/
def receive (calls : List Call) : Recorded :=
  (calls.foldl Channel.send .empty).close.recorded

end Interface

/-- What has been written to a console. Models `ConsoleInterface`. -/
structure Console where
  output : String
  errors : String
deriving DecidableEq, Repr

namespace Console

/-- Nothing written yet. -/
def empty : Console := ⟨"", ""⟩

/-- What stands before an error. -/
def errorLabel : String := "ERROR: "

/-- Write a line to standard output. -/
def printLine (c : Console) (text : String) : Console :=
  { c with output := c.output ++ text ++ "\n" }

/-- Write a line to standard error. -/
def errorLine (c : Console) (text : String) : Console :=
  { c with errors := c.errors ++ text ++ "\n" }

/-- Carry out a call. -/
def perform (c : Console) : Call → Console
  | .print message => c.printLine message
  | .printError text => c.errorLine (errorLabel ++ text)
  | .pointAt caret => c.errorLine caret.render

/-- Carry out calls in order. -/
def performAll (c : Console) (calls : List Call) : Console := calls.foldl perform c

end Console

end Synopsis
