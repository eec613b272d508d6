import RadioModem.Console.Editor
import RadioModem.Dispatch

/-!
# The modem's front end

The modem is driven from three places: every byte received, every tick of the timer, and a poll
that runs a finished line. Bytes belong to the radio data until the escape sequence completes; it
is answered as if the operator had typed the attention command. A line that waits to be run keeps
further bytes out, and stays in place when running it stops the board.
-/
namespace RadioModem

/-- Where a received byte belongs. -/
inductive Route
  | data
  | command
  deriving DecidableEq, Repr

def Route.name : Route → String
  | data => "Data"
  | command => "Command"

structure Modem where
  settings : ModemSettings
  escape : EscapeDetector
  line : LineBuffer
  commandMode : Bool
  ready : Bool
  tests : TestMode
  deriving DecidableEq, Repr

/-- What one byte did to a modem. -/
structure ByteStep where
  modem : Modem
  route : Route
  echo : String
  journal : Journal

/-- What one tick did to a modem and its board. -/
structure TickStep (β : Type) where
  modem : Modem
  board : β
  journal : Journal

/-- What polling did, and whether it ran a line or stopped the board. -/
structure PollStep (β : Type) where
  modem : Modem
  board : β
  reply : String
  ran : Attempt Bool
  journal : Journal

/-- What a run of bytes did, with the bytes that belong to the data. -/
structure FeedStep where
  modem : Modem
  data : List UInt8
  echo : String
  journal : Journal

namespace Modem

def attentionLine : String := "AT"

def ofSettings (s : ModemSettings) : Modem :=
  ⟨s, .ofGuard s.guardTicks, .ofCapacity s.capacity, false, false, .clear⟩

def features (m : Modem) : Features := m.settings.features

def text (m : Modem) : String := m.line.text

def edit (m : Modem) (byte : UInt8) : ByteStep :=
  let k := m.line.key byte
  let m := { m with line := k.line }
  match k.event with
  | .pending => ⟨m, .command, k.echo, k.journal⟩
  | .lineReady => ⟨{ m with ready := true }, .command, k.echo, k.journal⟩
  | .overflow =>
    ⟨{ m with commandMode := false }, .command, k.echo,
      k.journal ++ .count .overflows 1 ++ .note .info "command mode abandoned"⟩

/-- Routes a byte that the escape detector has seen. -/
def receive (m : Modem) (byte : UInt8) : ByteStep :=
  if !m.commandMode then ⟨m, .data, "", .empty⟩
  else if m.ready then
    ⟨m, .command, "",
      .note .trace ("line pending dispatch, dropping 0x" ++ Text.hex 2 byte.toNat)⟩
  else m.edit byte

def onByte (m : Modem) (byte : UInt8) : ByteStep :=
  let s := { m with escape := m.escape.onByte byte }.receive byte
  { s with journal := m.escape.byteJournal byte ++ s.journal }

def feed (m : Modem) : List UInt8 → FeedStep
  | [] => ⟨m, [], "", .empty⟩
  | byte :: bytes =>
    let s := m.onByte byte
    let rest := s.modem.feed bytes
    ⟨rest.modem, (if s.route = .data then [byte] else []) ++ rest.data, s.echo ++ rest.echo,
      s.journal ++ rest.journal⟩

variable {β : Type} [Board β]

/-- The watchdog is switched only on boards that run one. -/
def watchdog (m : Modem) (b : β) (enabled : Bool) : β × Journal :=
  if m.features.watchdog then Board.setWatchdog b enabled else (b, .empty)

def enterCommandMode (m : Modem) (b : β) : TickStep β :=
  let (board, switched) := m.watchdog b false
  ⟨{ m with commandMode := true, line := m.line.set attentionLine, ready := true }, board,
    .note .info (Dispatch.tagged b "escape sequence, entering command mode") ++
      .count .escapes 1 ++ switched⟩

def onTick (m : Modem) (b : β) : TickStep β :=
  let ticked := { m with escape := m.escape.onTick }
  if m.escape.fires then ticked.enterCommandMode b
  else ⟨ticked, b, m.escape.tickJournal⟩

def leaveCommandMode (m : Modem) (b : β) : TickStep β :=
  let (board, switched) := m.watchdog b true
  ⟨{ m with escape := m.escape.restartWindow, commandMode := false }, board,
    switched ++ .note .info (Dispatch.tagged b "back to data mode")⟩

/-- The line has been run: the buffer is free for the next one. -/
def finished (m : Modem) (t : TestMode) : Modem :=
  { m with tests := t, ready := false, line := m.line.clear }

def runLine (m : Modem) (b : β) : PollStep β :=
  let o := Dispatch.run m.features b m.tests m.text
  match o.effect with
  | .stop how => ⟨{ m with tests := o.tests }, o.board, o.reply, .error how, o.journal⟩
  | .stay => ⟨m.finished o.tests, o.board, o.reply, .ok true, o.journal⟩
  | .leaveCommandMode =>
    let left := (m.finished o.tests).leaveCommandMode o.board
    ⟨left.modem, left.board, o.reply, .ok true, o.journal ++ left.journal⟩

def poll (m : Modem) (b : β) : PollStep β :=
  if m.ready then m.runLine b else ⟨m, b, "", .ok false, .empty⟩

end Modem

end RadioModem
