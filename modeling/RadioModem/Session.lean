import RadioModem.Modem
import RadioModem.Node.Basic

/-!
# A node's session

A session joins a modem and its board and is driven by two events: bytes from the serial line, and
ticks. Each byte is handled to the end, and a finished line is run before the next byte is looked
at; bytes after a command that stops the board are left alone. Test reports come out on every
hundredth tick of a 32-bit tick count.
-/
namespace RadioModem

def ticksPerSecond : UInt32 := 100

/-- What one event sends back over the serial line, passes to the radio data, and hands to the
relay, with the reason if the board stopped. -/
structure SessionOutput where
  reply : String
  data : List UInt8
  relayed : List Relayed
  halt : Option HaltReason
  deriving DecidableEq, Repr

def SessionOutput.isEmpty (o : SessionOutput) : Bool :=
  o.reply.isEmpty && o.data.isEmpty && o.relayed.isEmpty && o.halt.isNone

structure Session where
  modem : Modem
  node : Node
  ticks : UInt32
  deriving DecidableEq, Repr

/-- A session after an event, with the event's output or the message it crashed with. -/
structure Turn where
  session : Session
  output : Except String SessionOutput
  journal : Journal

/-- How far a run of bytes was handled. -/
structure Handling where
  modem : Modem
  node : Node
  reply : String
  data : List UInt8
  stop : Option Stop
  journal : Journal

namespace Session

def ofParts (m : Modem) (n : Node) : Session := ⟨m, n, 0⟩

def ofConfiguration (c : Configuration) : Except SetupError Session := do
  let node ← Node.ofConfiguration c
  return ofParts (.ofSettings c.modem) node

/-- Handles one byte and the line that it may finish. -/
def handleByte (m : Modem) (n : Node) (byte : UInt8) : Handling :=
  let s := m.onByte byte
  let p := s.modem.poll n
  { modem := p.modem
    node := p.board
    reply := s.echo ++ p.reply
    data := if s.route = .data then [byte] else []
    stop := match p.ran with
      | .ok _ => none
      | .error how => some how
    journal := s.journal ++ p.journal }

/-- Handles bytes up to the first that stops the board. -/
def handleBytes (m : Modem) (n : Node) : List UInt8 → Handling
  | [] => ⟨m, n, "", [], none, .empty⟩
  | byte :: bytes =>
    let h := handleByte m n byte
    match h.stop with
    | some _ => h
    | none =>
      let rest := handleBytes h.modem h.node bytes
      { rest with
        reply := h.reply ++ rest.reply
        data := h.data ++ rest.data
        journal := h.journal ++ rest.journal }

def passthroughJournal (data : List UInt8) : Journal :=
  if data.isEmpty then .empty
  else .count .passthroughBytes data.length ++
    .note .trace ("passthrough " ++ toString data.length ++ " bytes")

/-- The end of a serial event: waiting commands leave with its output. -/
def drained (ticks : UInt32) (h : Handling) (halt : Option HaltReason) : Turn :=
  let (relayed, relay) := h.node.relay.drain
  { session := ⟨h.modem, { h.node with relay }, ticks⟩
    output := .ok ⟨h.reply, h.data, relayed, halt⟩
    journal := h.journal ++ passthroughJournal h.data }

def onSerial (s : Session) (bytes : List UInt8) : Turn :=
  let h := handleBytes s.modem s.node bytes
  match h.stop with
  | none => drained s.ticks h none
  | some (.halted reason) => drained s.ticks h (some reason)
  | some (.crashed message) => ⟨⟨h.modem, h.node, s.ticks⟩, .error message, h.journal⟩

/-- The reports of the test modes that are on, signal first. -/
def testReports (s : Session) : String :=
  (if s.modem.tests.has .rssi then Board.signalReport s.node (Board.node s.node) else "") ++
    (if s.modem.tests.has .tdm then Board.timingReport s.node (Board.node s.node) else "")

def reportsDue (s : Session) : Bool := s.ticks % ticksPerSecond == 0

/-- A tick on which the board stopped is not counted. -/
def onTick (s : Session) : Turn :=
  let t := s.modem.onTick s.node
  let p := t.modem.poll t.board
  let journal := t.journal ++ p.journal
  match p.ran with
  | .error (.crashed message) => ⟨⟨p.modem, p.board, s.ticks⟩, .error message, journal⟩
  | .error (.halted reason) =>
    ⟨⟨p.modem, p.board, s.ticks⟩, .ok ⟨p.reply, [], [], some reason⟩, journal⟩
  | .ok _ =>
    let next : Session := ⟨p.modem, p.board, s.ticks + 1⟩
    ⟨next, .ok ⟨p.reply ++ (if next.reportsDue then next.testReports else ""), [], [], none⟩,
      journal⟩

/-- No line waits, no window is running and no report is on: nothing is left for a tick to do but
to be counted. -/
def isStill (s : Session) : Bool :=
  !s.modem.ready && s.modem.escape.countdown == 0 && TestFlag.all.all fun f => !s.modem.tests.has f

/-- A still session so many ticks later. -/
def skip (s : Session) (ticks : Nat) : Session := { s with ticks := s.ticks + UInt32.ofNat ticks }

end Session

end RadioModem
