import MultiIp.Board.Answers
import MultiIp.Lib.Run
import MultiIp.Panel.Stream

/-!
# The panel and the board on one serial line

Two channels of characters join the panel to the board. The panel sends one
command at a time and waits for its response or for the timeout; the board
executes the lines it receives and prints their answers.
-/

namespace MultiIp.Panel

open Lib Wire Firmware

/-! ## State -/

/-- The command that holds `_cmdLock`, with the state of its task. -/
inductive TaskState
  | waiting
  | completed (resp : ProtocolResponse)
  | timedOut
  deriving DecidableEq

structure Pending where
  id : Nat
  task : TaskState
  deriving DecidableEq

/-- A line that the board executed: the command it came from, what it read and what it printed. -/
structure Execution where
  id : Nat
  line : Text
  name : Text
  out : Text

structure Link where
  firmware : Firmware
  /-- Characters on their way to the board, each with the number of its command. -/
  toBoard : List (Nat × Char)
  toPanel : Text
  lineBuf : Text
  collector : Collector
  pending : Option Pending
  /-- The commands that were sent, what the board executed and what `SendCommandAsync` returned, for the record. -/
  sent : List Text
  executed : List Execution
  returned : List (Nat × ProtocolResponse)

namespace Link

def init (f : Firmware) : Link where
  firmware := f
  toBoard := []
  toPanel := []
  lineBuf := []
  collector := .init
  pending := none
  sent := []
  executed := []
  returned := []

/-! ## The panel -/

/-- `SendCommandAsync` from the lock to the first `await`. -/
def sendCommand (s : Link) (command : Text) : Link :=
  { s with
    pending := some ⟨s.sent.length, .waiting⟩
    collector := { s.collector with collectName := none }
    toBoard := s.toBoard ++ (command.map asciiChar ++ ['\r']).map (s.sent.length, ·)
    sent := s.sent ++ [command] }

/-- `TrySetResult` and `TrySetException`: the first one counts. -/
def trySet (p : Option Pending) (t : TaskState) : Option Pending :=
  p.map (fun p => if p.task = .waiting then { p with task := t } else p)

def timeout (s : Link) : Link := { s with pending := trySet s.pending .timedOut }

/-- One character of `Port_DataReceived`. -/
def dataReceived (cu : Culture) (s : Link) : Link :=
  match s.toPanel with
  | [] => s
  | c :: rest =>
    let r := portDataReceived cu (s.lineBuf, (s.collector, [])) [c]
    { s with
      toPanel := rest
      lineBuf := r.1
      collector := r.2.1
      pending := r.2.2.foldl (fun p resp => trySet p (.completed resp)) s.pending }

/-- The end of `SendCommandAsync`: it returns the response or throws, and releases the lock. -/
def resume (s : Link) : Link :=
  match s.pending with
  | some ⟨id, .completed resp⟩ => { s with pending := none, returned := s.returned ++ [(id, resp)] }
  | _ => { s with pending := none }

/-! ## The board -/

/-- The line that `cmd_dispatch` gets when the character ends one. -/
def lineAt (f : Firmware) (c : Char) : Option Text :=
  if (c = '\r' ∨ c = '\n') ∧ f.cmd_line.length > 0 then some (f.cmd_line.takeWhile (· ≠ '\x00')) else none

/-- The main loop reads one character. The key `q` opens the menu and does not reach the command channel. -/
def sciReceive (s : Link) (env : Env) : Link :=
  match s.toBoard with
  | [] => s
  | (id, c) :: rest =>
    if c = 'q' then { s with toBoard := rest }
    else
      let r := cmd_channel_feed s.firmware env c
      { s with
        firmware := r.1
        toBoard := rest
        toPanel := s.toPanel ++ r.2
        executed := s.executed ++
          ((lineAt s.firmware c).map (fun line => ⟨id, line, (parse env line).name.toList, r.2⟩)).toList }

/-! ## Runs -/

inductive Step
  | send (command : Text)
  | timeout
  | dataReceived
  | resume
  | sciReceive (env : Env)
  | interrupt (i : Interrupt)

def step (cu : Culture) (s : Link) : Step → Link
  | .send command => s.sendCommand command
  | .timeout => s.timeout
  | .dataReceived => s.dataReceived cu
  | .resume => s.resume
  | .sciReceive env => s.sciReceive env
  | .interrupt i => { s with firmware := s.firmware.interrupt i }

/-- A command waits for the lock, and goes on only when its task is done. -/
def allowed (s : Link) : Step → Prop
  | .send _ => s.pending = none
  | .resume => ∃ p ∈ s.pending, p.task ≠ .waiting
  | _ => True

def machine (cu : Culture) : Machine Link Step where
  step := step cu
  allowed := allowed

/-! ## What the panel may rely on -/

/-- What the board makes of a command. -/
def boardLine (command : Text) : Text :=
  ((command.map asciiChar).take (CMD_LINE_MAX - 1)).takeWhile (· ≠ '\x00')

/-- The response is the answer that the board printed while it executed this very command. -/
def Own (s : Link) (r : Nat × ProtocolResponse) : Prop :=
  ∃ x ∈ s.executed, ∃ command, s.sent[r.1]? = some command ∧ x.id = r.1 ∧ x.line = boardLine command ∧
    ∃ a : Answer, a.Wf ∧ x.out = a.print ∧ x.name = a.name ∧ r.2 = response a

/-- Every response that was returned belongs to its command. -/
def OwnResponses (s : Link) : Prop := ∀ r ∈ s.returned, s.Own r

/-- Everything that was sent has been executed, and its answers have been received. -/
def Quiet (s : Link) : Prop := s.toBoard = [] ∧ s.firmware.cmd_line = [] ∧ s.toPanel = []

/-- The last command has returned a response. -/
def lastReturned (s : Link) : Prop := ∃ r ∈ s.returned, r.1 = s.sent.length - 1

/-- One line that is not empty, without the key that opens the menu. -/
def IsCommand (command : Text) : Prop := command ≠ [] ∧ ∀ c ∈ command, c ≠ '\r' ∧ c ≠ '\n' ∧ c ≠ 'q'

/-- After a command that timed out, the next is sent only when the line is quiet. -/
def careful (s : Link) : Step → Prop
  | .send command => IsCommand command ∧ (s.lastReturned ∨ s.Quiet)
  | _ => True

/-- The runs in which every command is sent with care. -/
def carefulMachine (cu : Culture) : Machine Link Step where
  step := step cu
  allowed s e := s.allowed e ∧ s.careful e

instance (s : Link) (e : Step) : Decidable (s.allowed e) :=
  match e with
  | .send _ => inferInstanceAs (Decidable (s.pending = none))
  | .resume => inferInstanceAs (Decidable (∃ p ∈ s.pending, p.task ≠ .waiting))
  | .timeout | .dataReceived | .sciReceive _ | .interrupt _ => isTrue trivial

instance (s : Link) : Decidable s.lastReturned :=
  inferInstanceAs (Decidable (∃ r ∈ s.returned, r.1 = s.sent.length - 1))

instance (s : Link) : Decidable s.Quiet :=
  inferInstanceAs (Decidable (s.toBoard = [] ∧ s.firmware.cmd_line = [] ∧ s.toPanel = []))

instance (command : Text) : Decidable (IsCommand command) :=
  have := List.decidableBAll (fun c => c ≠ '\r' ∧ c ≠ '\n' ∧ c ≠ 'q') command
  inferInstanceAs (Decidable (command ≠ [] ∧ ∀ c ∈ command, c ≠ '\r' ∧ c ≠ '\n' ∧ c ≠ 'q'))

instance (s : Link) (e : Step) : Decidable (s.careful e) :=
  match e with
  | .send command => inferInstanceAs (Decidable (IsCommand command ∧ (s.lastReturned ∨ s.Quiet)))
  | .resume | .timeout | .dataReceived | .sciReceive _ | .interrupt _ => isTrue trivial

instance (cu : Culture) (s : Link) (e : Step) : Decidable ((machine cu).allowed s e) :=
  inferInstanceAs (Decidable (s.allowed e))

instance (cu : Culture) (s : Link) (e : Step) : Decidable ((carefulMachine cu).allowed s e) :=
  inferInstanceAs (Decidable (s.allowed e ∧ s.careful e))

end Link

end MultiIp.Panel
